import Mathlib.Algebra.Group.Nat.Defs
import Mathlib.Data.List.TakeDrop
import Enfold.JsonTree
import Enfold.Text

/-! JSON text as `json.dumps` prints it with sorted keys, without spaces and without ASCII
escaping, and as `json.loads` reads it. What is printed is read back. -/
namespace Enfold

/-! ## Numbers -/

/-- The parts of `-?(0|[1-9]\d*)(\.\d+)?([eE][-+]?\d+)?`. -/
structure NumberText where
  sign : List Char
  whole : List Char
  fraction : List Char
  exponent : List Char

def NumberText.text (t : NumberText) : List Char := t.sign ++ t.whole ++ t.fraction ++ t.exponent

def scanSign : List Char → List Char × List Char
  | '-' :: rest => (['-'], rest)
  | text => ([], text)

def scanWhole : List Char → Option (List Char × List Char)
  | '0' :: rest => some (['0'], rest)
  | text =>
    if text.takeWhile Char.isDigit = [] then none
    else some (text.takeWhile Char.isDigit, text.dropWhile Char.isDigit)

def scanFraction : List Char → List Char × List Char
  | '.' :: rest =>
    if rest.takeWhile Char.isDigit = [] then ([], '.' :: rest)
    else ('.' :: rest.takeWhile Char.isDigit, rest.dropWhile Char.isDigit)
  | text => ([], text)

def exponentSign : List Char → List Char × List Char
  | '+' :: rest => (['+'], rest)
  | '-' :: rest => (['-'], rest)
  | text => ([], text)

def scanExponent : List Char → List Char × List Char
  | [] => ([], [])
  | e :: rest =>
    let (sign, digits) := exponentSign rest
    if (e = 'e' || e = 'E') && digits.takeWhile Char.isDigit ≠ [] then
      (e :: (sign ++ digits.takeWhile Char.isDigit), digits.dropWhile Char.isDigit)
    else ([], e :: rest)

def scanNumber (text : List Char) : Option (NumberText × List Char) := do
  let (sign, rest) := scanSign text
  let (whole, rest) ← scanWhole rest
  let (fraction, rest) := scanFraction rest
  let (exponent, rest) := scanExponent rest
  some (⟨sign, whole, fraction, exponent⟩, rest)

structure Digits (ds : List Char) : Prop where
  some : ds ≠ []
  all : ∀ c ∈ ds, c.isDigit = true

structure NumberText.Valid (t : NumberText) : Prop where
  sign : t.sign = [] ∨ t.sign = ['-']
  whole : t.whole = ['0'] ∨ (Digits t.whole ∧ t.whole.head? ≠ some '0')
  fraction : t.fraction = [] ∨ ∃ ds, Digits ds ∧ t.fraction = '.' :: ds
  exponent : t.exponent = [] ∨ ∃ e s ds, (e = 'e' ∨ e = 'E') ∧ (s = [] ∨ s = ['+'] ∨ s = ['-']) ∧
    Digits ds ∧ t.exponent = e :: (s ++ ds)

theorem numberLetters {t : NumberText} (valid : t.Valid) :
    ∀ c ∈ t.text, c.isDigit = true ∨ ['+', '-', '.', 'e', 'E'].contains c = true := by
  obtain ⟨sign, whole, fraction, exponent⟩ := t
  obtain ⟨hs, hw, hf, he⟩ := valid
  have signed {s : List Char} (shape : s = [] ∨ s = ['+'] ∨ s = ['-']) :
      ∀ c ∈ s, c.isDigit = true ∨ ['+', '-', '.', 'e', 'E'].contains c = true := by
    rcases shape with rfl | rfl | rfl
    · simp
    · simp
    · simp
  have digit {ds : List Char} (digits : Digits ds) :
      ∀ c ∈ ds, c.isDigit = true ∨ ['+', '-', '.', 'e', 'E'].contains c = true :=
    fun c inside => .inl (digits.all c inside)
  simp only [NumberText.text, List.forall_mem_append]
  refine ⟨⟨⟨signed (hs.imp_right .inr), ?_⟩, ?_⟩, ?_⟩
  · rcases hw with rfl | ⟨digits, -⟩
    · simp
    · exact digit digits
  · rcases hf with rfl | ⟨ds, digits, rfl⟩
    · simp
    · exact List.forall_mem_cons.mpr ⟨.inr rfl, digit digits⟩
  · rcases he with rfl | ⟨e, s, ds, letter, sign, digits, rfl⟩
    · simp
    · refine List.forall_mem_cons.mpr ⟨.inr ?_, List.forall_mem_append.mpr ⟨signed sign, digit digits⟩⟩
      rcases letter with rfl | rfl
      · rfl
      · rfl

theorem numberApart {t : NumberText} (valid : t.Valid) {d : Char}
    (other : (d.isDigit || ['+', '-', '.', 'e', 'E'].contains d) = false) : d ∉ t.text := by
  intro inside
  exact absurd (Bool.or_eq_true_iff.mpr (numberLetters valid d inside)) (Bool.eq_false_iff.mp other)

-- what stands behind a value inside a text
def Stops (rest : List Char) : Prop := ∀ c ∈ rest.head?, c = ',' ∨ c = ']' ∨ c = '\x7d'

def Undigit (rest : List Char) : Prop := ∀ c ∈ rest.head?, c.isDigit = false

-- what no number goes on with
def Ends (rest : List Char) : Prop := ∀ c ∈ rest.head?, c.isDigit = false ∧ c ≠ '.' ∧ c ≠ 'e' ∧ c ≠ 'E'

theorem stopsEnds {rest : List Char} (stops : Stops rest) : Ends rest := by
  intro c hc
  rcases stops c hc with rfl | rfl | rfl
  · decide
  · decide
  · decide

theorem digitsScanned {ds rest : List Char} (digits : Digits ds) (behind : Undigit rest) :
    (ds ++ rest).takeWhile Char.isDigit = ds ∧ (ds ++ rest).dropWhile Char.isDigit = rest := by
  rw [List.takeWhile_append_of_pos digits.all, List.dropWhile_append_of_pos digits.all]
  cases rest with
  | nil => simp
  | cons c tail =>
    have miss := behind c rfl
    simp [miss]

theorem signScanned {sign rest : List Char} (shape : sign = [] ∨ sign = ['-'])
    (behind : rest.head? ≠ some '-') : scanSign (sign ++ rest) = (sign, rest) := by
  rcases shape with rfl | rfl
  · cases rest with
    | nil => rfl
    | cons c tail =>
      unfold scanSign
      split
      · rename_i minus
        cases minus
        exact absurd rfl behind
      · rfl
  · rfl

theorem wholeScanned {whole rest : List Char}
    (shape : whole = ['0'] ∨ (Digits whole ∧ whole.head? ≠ some '0')) (behind : Undigit rest) :
    scanWhole (whole ++ rest) = some (whole, rest) := by
  rcases shape with rfl | ⟨digits, leads⟩
  · rfl
  · obtain ⟨taken, dropped⟩ := digitsScanned digits behind
    have some' := digits.some
    cases whole with
    | nil => exact absurd rfl some'
    | cons d ds =>
      unfold scanWhole
      split
      · rename_i zero
        cases zero
        exact absurd rfl leads
      · rw [taken, dropped, if_neg some']

theorem fractionScanned {fraction rest : List Char}
    (shape : fraction = [] ∨ ∃ ds, Digits ds ∧ fraction = '.' :: ds) (behind : Undigit rest)
    (pointless : rest.head? ≠ some '.') : scanFraction (fraction ++ rest) = (fraction, rest) := by
  rcases shape with rfl | ⟨ds, digits, rfl⟩
  · cases rest with
    | nil => rfl
    | cons c tail =>
      unfold scanFraction
      split
      · rename_i point
        cases point
        exact absurd rfl pointless
      · rfl
  · obtain ⟨taken, dropped⟩ := digitsScanned digits behind
    simp only [List.cons_append, scanFraction, taken, dropped, if_neg digits.some]

theorem exponentScanned {exponent rest : List Char}
    (shape : exponent = [] ∨ ∃ e s ds, (e = 'e' ∨ e = 'E') ∧ (s = [] ∨ s = ['+'] ∨ s = ['-']) ∧
      Digits ds ∧ exponent = e :: (s ++ ds)) (behind : Ends rest) :
    scanExponent (exponent ++ rest) = (exponent, rest) := by
  rcases shape with rfl | ⟨e, s, ds, letter, sign, digits, rfl⟩
  · cases rest with
    | nil => rfl
    | cons c tail =>
      obtain ⟨-, -, small, large⟩ := behind c rfl
      simp [scanExponent, small, large]
  · obtain ⟨taken, dropped⟩ := digitsScanned digits fun c hc => (behind c hc).1
    have signed : exponentSign (s ++ (ds ++ rest)) = (s, ds ++ rest) := by
      rcases sign with rfl | rfl | rfl
      · obtain ⟨d, more, rfl⟩ := List.exists_cons_of_ne_nil digits.some
        have digit := digits.all d List.mem_cons_self
        unfold exponentSign
        split
        · rename_i plus
          cases plus
          exact absurd digit (by decide)
        · rename_i minus
          cases minus
          exact absurd digit (by decide)
        · rfl
      · rfl
      · rfl
    have exact' : (e = 'e' || e = 'E') = true := by
      rcases letter with rfl | rfl
      · decide
      · decide
    simp [scanExponent, signed, taken, dropped, exact', digits.some]

theorem numberScanned {t : NumberText} {rest : List Char} (valid : t.Valid) (behind : Ends rest) :
    scanNumber (t.text ++ rest) = some (t, rest) := by
  obtain ⟨sign, whole, fraction, exponent⟩ := t
  obtain ⟨hs, hw, hf, he⟩ := valid
  have exponentFirst : ∀ c ∈ (exponent ++ rest).head?, c.isDigit = false ∧ c ≠ '.' := by
    intro c hc
    rcases he with rfl | ⟨e, s, ds, letter, -, -, rfl⟩
    · exact ⟨(behind c hc).1, (behind c hc).2.1⟩
    · cases hc
      rcases letter with rfl | rfl
      · decide
      · decide
  have fractionFirst : Undigit (fraction ++ (exponent ++ rest)) := by
    intro c hc
    rcases hf with rfl | ⟨ds, -, rfl⟩
    · exact (exponentFirst c hc).1
    · cases hc
      decide
  have unsigned : (whole ++ (fraction ++ (exponent ++ rest))).head? ≠ some '-' := by
    rcases hw with rfl | ⟨digits, -⟩
    · simp
    · obtain ⟨d, more, rfl⟩ := List.exists_cons_of_ne_nil digits.some
      have digit := digits.all d List.mem_cons_self
      intro same
      cases same
      exact absurd digit (by decide)
  simp only [NumberText.text, List.append_assoc, scanNumber, signScanned hs unsigned,
    wholeScanned hw fractionFirst, Option.bind_eq_bind, Option.bind_some,
    fractionScanned hf (fun c hc => (exponentFirst c hc).1) (fun same => (exponentFirst '.' same).2 rfl),
    exponentScanned he behind]

/-- The interpreter's floats: `repr` prints a number with a fraction or an exponent, and `float`
reads the same double back. -/
structure FloatText where
  isDouble : Rat → Bool
  repr : Rat → List Char
  read : List Char → Option Rat
  shape : ∀ x, isDouble x → ∃ t : NumberText, t.Valid ∧ (t.fraction ≠ [] ∨ t.exponent ≠ []) ∧ repr x = t.text
  exact : ∀ x, isDouble x → read (repr x) = some x

-- where no number is a double
theorem undoubledShape : ∀ _ : Rat, (false : Bool) = true → ∃ t : NumberText, t.Valid ∧
    (t.fraction ≠ [] ∨ t.exponent ≠ []) ∧ ([] : List Char) = t.text := nofun

theorem undoubledExact : ∀ x : Rat, (false : Bool) = true → (none : Option Rat) = some x := nofun

-- `float(value)` past the largest double
def floatOverflows (i : Int) : Bool := 2 ^ 1024 - 2 ^ 970 ≤ i.natAbs

def intDigits (i : Int) : List Char := Nat.toDigits 10 i.natAbs

def intText (i : Int) : List Char := (if i < 0 then ['-'] else []) ++ intDigits i

def readInt (t : NumberText) : Int :=
  let n : Int := Nat.ofDigitChars 10 t.whole 0
  if t.sign = [] then n else -n

theorem leadingDigit {n : Nat} (h : n ≠ 0) : (Nat.toDigits 10 n).head? ≠ some '0' := by
  induction n using Nat.strongRecOn with
  | ind n ih =>
    by_cases small : n < 10
    · rw [Nat.toDigits_of_lt_base small]
      intro same
      have digit : ∀ d, d < 10 → d ≠ 0 → Nat.digitChar d ≠ '0' := by decide
      exact digit n small h (Option.some.inj same)
    · rw [Nat.toDigits_of_base_le (by omega) (by omega)]
      have rest := ih (n / 10) (by omega) (by omega)
      rw [List.head?_append]
      obtain ⟨d, more, shape⟩ := List.exists_cons_of_ne_nil (Nat.toDigits_ne_nil (n := n / 10) (b := 10))
      rw [shape] at rest ⊢
      exact rest

theorem intValid (i : Int) : (⟨if i < 0 then ['-'] else [], intDigits i, [], []⟩ : NumberText).Valid where
  sign := by
    by_cases negative : i < 0
    · exact .inr (if_pos negative)
    · exact .inl (if_neg negative)
  whole := by
    by_cases zero : i.natAbs = 0
    · exact .inl (by simp [intDigits, zero])
    · refine .inr ⟨⟨Nat.toDigits_ne_nil, fun c hc => ?_⟩, leadingDigit zero⟩
      exact Nat.isDigit_of_mem_toDigits (by omega) (by omega) hc
  fraction := .inl rfl
  exponent := .inl rfl

theorem intRead (i : Int) : readInt ⟨if i < 0 then ['-'] else [], intDigits i, [], []⟩ = i := by
  simp only [readInt, intDigits, Nat.ofDigitChars_toDigits (b := 10) (by omega) (by omega)]
  by_cases negative : i < 0
  · simp only [negative, if_true, List.cons_ne_nil, if_false]
    omega
  · simp only [negative, if_false, if_true]
    omega

/-! ## Strings -/

-- `ESCAPE_DCT`, and `\u00xx` for the other control characters
def escapeChar (c : Char) : List Char :=
  if c = '\x22' then ['\x5c', '\x22']
  else if c = '\x5c' then ['\x5c', '\x5c']
  else if c = '\n' then ['\x5c', 'n']
  else if c = '\r' then ['\x5c', 'r']
  else if c = '\t' then ['\x5c', 't']
  else if c = '\x0c' then ['\x5c', 'f']
  else if c = '\x08' then ['\x5c', 'b']
  else if c.toNat < 0x20 then
    ['\x5c', 'u', '0', '0', Nat.digitChar (c.toNat / 16), Nat.digitChar (c.toNat % 16)]
  else [c]

def quote (text : List Char) : List Char := '\x22' :: (text.flatMap escapeChar ++ ['\x22'])

def hexValue (c : Char) : Option Nat :=
  if c.isDigit then some (c.toNat - 48)
  else if 'a' ≤ c && c ≤ 'f' then some (c.toNat - 87)
  else if 'A' ≤ c && c ≤ 'F' then some (c.toNat - 55)
  else none

def readHex (digits : List Char) : Option Nat := do
  let values ← digits.mapM hexValue
  some (values.foldl (fun total value => 16 * total + value) 0)

-- behind `\u`; a lone surrogate is no character here
def scanUnicode (a b c d : Char) (rest : List Char) : Option (Char × List Char) := do
  let code ← readHex [a, b, c, d]
  if 0xD800 ≤ code && code < 0xDC00 then
    match rest with
    | '\x5c' :: 'u' :: e :: f :: g :: h :: rest => do
      let low ← readHex [e, f, g, h]
      if 0xDC00 ≤ low && low < 0xE000 then
        some (Char.ofNat (0x10000 + (code - 0xD800) * 0x400 + (low - 0xDC00)), rest)
      else none
    | _ => none
  else if 0xDC00 ≤ code && code < 0xE000 then none
  else some (Char.ofNat code, rest)

def scanEscape : List Char → Option (Char × List Char)
  | '\x22' :: rest => some ('\x22', rest)
  | '\x5c' :: rest => some ('\x5c', rest)
  | '/' :: rest => some ('/', rest)
  | 'b' :: rest => some ('\x08', rest)
  | 'f' :: rest => some ('\x0c', rest)
  | 'n' :: rest => some ('\n', rest)
  | 'r' :: rest => some ('\r', rest)
  | 't' :: rest => some ('\t', rest)
  | 'u' :: a :: b :: c :: d :: rest => scanUnicode a b c d rest
  | _ => none

-- behind the opening quote, for texts shorter than the first argument
def scanString : Nat → List Char → Option (List Char × List Char)
  | 0, _ => none
  | _ + 1, [] => none
  | n + 1, c :: rest =>
    if c = '\x22' then some ([], rest)
    else if c = '\x5c' then do
      let (c, rest) ← scanEscape rest
      let (cs, rest) ← scanString n rest
      some (c :: cs, rest)
    else if c.toNat < 0x20 then none
    else do
      let (cs, rest) ← scanString n rest
      some (c :: cs, rest)

theorem hexRead : ∀ d, d < 16 → hexValue (Nat.digitChar d) = some d := by decide

theorem controlRead {c : Char} (control : c.toNat < 0x20) (rest : List Char) :
    scanUnicode '0' '0' (Nat.digitChar (c.toNat / 16)) (Nat.digitChar (c.toNat % 16)) rest =
      some (c, rest) := by
  have high := hexRead (c.toNat / 16) (by omega)
  have low := hexRead (c.toNat % 16) (by omega)
  have zero : hexValue '0' = some 0 := by decide
  have code : 16 * (c.toNat / 16) + c.toNat % 16 = c.toNat := by omega
  have plain : ¬ (0xD800 ≤ c.toNat) := by omega
  have plain' : ¬ (0xDC00 ≤ c.toNat) := by omega
  simp [scanUnicode, readHex, zero, high, low, code, plain, plain']

theorem charScanned (c : Char) (n : Nat) (rest : List Char) :
    scanString (n + 1) (escapeChar c ++ rest) =
      (scanString n rest).map fun found => (c :: found.1, found.2) := by
  have again : ∀ found : Option (List Char × List Char),
      (found.bind fun p => some (c :: p.1, p.2)) = found.map fun p => (c :: p.1, p.2) := by
    intro found
    cases found with
    | none => rfl
    | some p => rfl
  unfold escapeChar
  split
  · subst_vars
    exact again _
  split
  · subst_vars
    exact again _
  split
  · subst_vars
    exact again _
  split
  · subst_vars
    exact again _
  split
  · subst_vars
    exact again _
  split
  · subst_vars
    exact again _
  split
  · subst_vars
    exact again _
  split
  · rename_i control
    simp only [List.cons_append, List.nil_append, scanString, scanEscape, controlRead control]
    exact again _
  · rename_i quote' slash _ _ _ _ _ control
    simp only [List.cons_append, List.nil_append, scanString, quote', slash, control, if_false]
    exact again _

theorem stringScanned (cs rest : List Char) (n : Nat)
    (room : (cs.flatMap escapeChar).length < n) :
    scanString n (cs.flatMap escapeChar ++ '\x22' :: rest) = some (cs, rest) := by
  induction cs generalizing n with
  | nil =>
    obtain ⟨m, rfl⟩ := Nat.exists_eq_succ_of_ne_zero (Nat.ne_of_gt (Nat.zero_lt_of_lt room))
    rfl
  | cons c cs ih =>
    rw [List.flatMap_cons, List.length_append] at room
    have wide : 0 < (escapeChar c).length := by
      unfold escapeChar
      repeat' split
      all_goals simp
    obtain ⟨m, rfl⟩ := Nat.exists_eq_succ_of_ne_zero (Nat.ne_of_gt (Nat.zero_lt_of_lt room))
    rw [List.flatMap_cons, List.append_assoc, charScanned, ih m (by omega)]
    rfl

/-! ## Values -/

inductive JsonFault where
  | malformed
  | nonFinite (constant : String)
  | duplicateKey (key : String)
  | tooManyDigits
  deriving DecidableEq, Repr

-- `_unique_object`, the hook behind every object
def uniqueObject (result : JsonObject) : JsonObject → Except JsonFault JsonObject
  | [] => .ok result
  | (key, value) :: rest =>
    if (result.map Prod.fst).contains key then .error (.duplicateKey key)
    else uniqueObject (result ++ [(key, value)]) rest

def skipSpace (text : List Char) : List Char :=
  text.dropWhile fun c => c = ' ' || c = '\t' || c = '\n' || c = '\r'

def keyword (text : List Char) : Option (Json × List Char) :=
  ((Text.after "null".toList text).map (.null, ·)) <|>
    ((Text.after "true".toList text).map (.bool true, ·)) <|>
    (Text.after "false".toList text).map (.bool false, ·)

-- the constants handed to `parse_constant`
def nonFinite (text : List Char) : Option String :=
  ["NaN", "Infinity", "-Infinity"].find? fun name => (Text.after name.toList text).isSome

section Scan
variable (floats : FloatText)

def scanNumeral (text : List Char) : Except JsonFault (Json × List Char) :=
  match scanNumber text with
  | none => match nonFinite text with
    | some constant => .error (.nonFinite constant)
    | none => .error .malformed
  | some (t, rest) =>
    if t.fraction = [] && t.exponent = [] then
      if maxStrDigits < t.whole.length then .error .tooManyDigits else .ok (.int (readInt t), rest)
    else match floats.read t.text with
      | some x => .ok (.float x, rest)
      | none => .error .malformed

-- each for texts shorter than the first argument
mutual
def scanOnce : Nat → List Char → Except JsonFault (Json × List Char)
  | 0, _ => .error .malformed
  | _ + 1, [] => .error .malformed
  | n + 1, c :: rest =>
    if c = '\x22' then
      match scanString n rest with
      | some (text, rest) => .ok (.str (String.ofList text), rest)
      | none => .error .malformed
    else if c = '\x7b' then
      if (skipSpace rest).head? = some '\x7d' then .ok (.obj [], (skipSpace rest).tail)
      else do
        let (members, rest) ← scanMembers n (skipSpace rest)
        let members ← uniqueObject [] members
        .ok (.obj members, rest)
    else if c = '[' then
      if (skipSpace rest).head? = some ']' then .ok (.arr [], (skipSpace rest).tail)
      else do
        let (items, rest) ← scanItems n (skipSpace rest)
        .ok (.arr items, rest)
    else match keyword (c :: rest) with
      | some found => .ok found
      | none => scanNumeral floats (c :: rest)
def scanItems : Nat → List Char → Except JsonFault (List Json × List Char)
  | 0, _ => .error .malformed
  | n + 1, text => do
    let (item, rest) ← scanOnce n text
    match skipSpace rest with
    | ']' :: rest => .ok ([item], rest)
    | ',' :: rest => do
      let (items, rest) ← scanItems n (skipSpace rest)
      .ok (item :: items, rest)
    | _ => .error .malformed
def scanMembers : Nat → List Char → Except JsonFault (JsonObject × List Char)
  | n + 1, '\x22' :: rest =>
    match scanString n rest with
    | none => .error .malformed
    | some (key, rest) =>
      match skipSpace rest with
      | ':' :: rest => do
        let (value, rest) ← scanOnce n (skipSpace rest)
        match skipSpace rest with
        | '\x7d' :: rest => .ok ([(String.ofList key, value)], rest)
        | ',' :: rest => do
          let (members, rest) ← scanMembers n (skipSpace rest)
          .ok ((String.ofList key, value) :: members, rest)
        | _ => .error .malformed
      | _ => .error .malformed
  | _, _ => .error .malformed
end

def loads (text : String) : Except JsonFault Json := do
  let (value, rest) ← scanOnce floats (text.toList.length + 1) (skipSpace text.toList)
  if skipSpace rest = [] then .ok value else .error .malformed

/-! ## Printing -/

mutual
def print : Json → List Char
  | .null => "null".toList
  | .bool true => "true".toList
  | .bool false => "false".toList
  | .int i => intText i
  | .float x => floats.repr x
  | .str text => quote text.toList
  | .arr [] => ['[', ']']
  | .arr (item :: items) => '[' :: (print item ++ printItems items)
  | .obj [] => ['\x7b', '\x7d']
  | .obj ((key, value) :: members) =>
    '\x7b' :: (quote key.toList ++ ':' :: (print value ++ printMembers members))
-- the items and members behind the first one
def printItems : List Json → List Char
  | [] => [']']
  | item :: items => ',' :: (print item ++ printItems items)
def printMembers : JsonObject → List Char
  | [] => ['\x7d']
  | (key, value) :: members =>
    ',' :: (quote key.toList ++ ':' :: (print value ++ printMembers members))
end

end Scan

/-! ## What can be printed -/

-- what the interpreter's own values are like: keys apart, floats its doubles
def Json.native (floats : FloatText) : Json → Bool
  | .obj members => decide (members.map Prod.fst).Nodup
  | .float x => floats.isDouble x
  | _ => true

-- what `str` converts
def Json.shortInt : Json → Bool
  | .int i => decide ((intDigits i).length ≤ maxStrDigits)
  | _ => true

def Json.plain (floats : FloatText) (v : Json) : Bool := v.native floats && v.shortInt

theorem uniqueKept {result pairs : JsonObject} (distinct : ((result ++ pairs).map Prod.fst).Nodup) :
    uniqueObject result pairs = .ok (result ++ pairs) := by
  induction pairs generalizing result with
  | nil => simp [uniqueObject]
  | cons pair rest ih =>
    obtain ⟨key, value⟩ := pair
    have split : (result ++ (key, value) :: rest) = (result ++ [(key, value)]) ++ rest := by simp
    have fresh : (result.map Prod.fst).contains key = false := by
      rw [List.map_append, List.map_cons, List.nodup_append] at distinct
      have apart := distinct.2.2
      simp only [List.contains_eq_mem, decide_eq_false_iff_not]
      intro inside
      exact apart key inside key List.mem_cons_self rfl
    rw [uniqueObject, fresh, split]
    rw [split] at distinct
    exact ih distinct

/-! ## Reading back -/

section Back
variable {floats : FloatText}

theorem skipNothing {c : Char} {rest : List Char}
    (ink : (c = ' ' || c = '\t' || c = '\n' || c = '\r') = false) : skipSpace (c :: rest) = c :: rest := by
  unfold skipSpace
  rw [List.dropWhile_cons, ink]
  rfl

-- how a printed value starts
def Leads (c : Char) : Prop :=
  (c = ' ' || c = '\t' || c = '\n' || c = '\r') = false ∧ c ≠ '\x5d' ∧ c ≠ '\x7d'

theorem numberLeads {t : NumberText} (valid : t.Valid) :
    ∃ c rest, t.text = c :: rest ∧ (c = '-' ∨ c.isDigit = true) := by
  obtain ⟨sign, whole, fraction, exponent⟩ := t
  rcases valid.sign with none' | minus
  · rcases valid.whole with zero | ⟨digits, -⟩
    · refine ⟨'0', fraction ++ exponent, ?_, .inr (by decide)⟩
      simp only at none' zero
      simp [NumberText.text, none', zero]
    · obtain ⟨d, more, shape⟩ := List.exists_cons_of_ne_nil digits.some
      simp only at none' shape
      subst none' shape
      exact ⟨d, more ++ (fraction ++ exponent), by simp [NumberText.text],
        .inr (digits.all d List.mem_cons_self)⟩
  · refine ⟨'-', whole ++ (fraction ++ exponent), ?_, .inl rfl⟩
    simp only at minus
    simp [NumberText.text, minus]

theorem numeralStart {c : Char} (start : c = '-' ∨ c.isDigit = true) :
    c ≠ '\x22' ∧ c ≠ '\x7b' ∧ c ≠ '[' ∧ c ≠ 'n' ∧ c ≠ 't' ∧ c ≠ 'f' ∧ Leads c := by
  rcases start with rfl | digit
  · exact ⟨by decide, by decide, by decide, by decide, by decide, by decide, by decide, by decide,
      by decide⟩
  · have no : ∀ d : Char, d.isDigit = false → c ≠ d := by
      intro d miss same
      rw [same, miss] at digit
      cases digit
    refine ⟨no _ (by decide), no _ (by decide), no _ (by decide), no _ (by decide), no _ (by decide),
      no _ (by decide), ?_, no _ (by decide), no _ (by decide)⟩
    simp [no ' ' (by decide), no '\t' (by decide), no '\n' (by decide), no '\r' (by decide)]

theorem numeralScanned {t : NumberText} {rest : List Char} {n : Nat} (valid : t.Valid) :
    scanOnce floats (n + 1) (t.text ++ rest) = scanNumeral floats (t.text ++ rest) := by
  obtain ⟨c, more, shape, start⟩ := numberLeads valid
  obtain ⟨string, object, array, n', t', f', -⟩ := numeralStart start
  have none' : keyword (c :: (more ++ rest)) = none := by
    simp [keyword, Text.after, n'.symm, t'.symm, f'.symm]
  rw [shape, List.cons_append, scanOnce, if_neg string, if_neg object, if_neg array, none']

theorem intScanned {i : Int} {rest : List Char} {n : Nat} (short : (intDigits i).length ≤ maxStrDigits)
    (behind : Stops rest) : scanOnce floats (n + 1) (intText i ++ rest) = .ok (.int i, rest) := by
  have valid := intValid i
  have text : intText i = NumberText.text ⟨if i < 0 then ['-'] else [], intDigits i, [], []⟩ := by
    simp [NumberText.text, intText]
  have room : ¬ maxStrDigits < (intDigits i).length := by omega
  rw [text, numeralScanned valid, scanNumeral, numberScanned valid (stopsEnds behind)]
  simp only [decide_true, Bool.and_true, if_true, room, if_false, intRead]

theorem floatScanned {x : Rat} {rest : List Char} {n : Nat} (double : floats.isDouble x = true)
    (behind : Stops rest) : scanOnce floats (n + 1) (floats.repr x ++ rest) = .ok (.float x, rest) := by
  obtain ⟨t, valid, broken, text⟩ := floats.shape x double
  have whole : (decide (t.fraction = []) && decide (t.exponent = [])) = false := by
    rcases broken with some' | some'
    · simp [some']
    · simp [some']
  rw [text, numeralScanned valid, scanNumeral, numberScanned valid (stopsEnds behind)]
  simp only [whole, ← text, floats.exact x double]
  rfl

theorem quoteScanned (key rest : List Char) {n : Nat} (room : (quote key).length ≤ n + 2) :
    scanString (n + 1) (key.flatMap escapeChar ++ '\x22' :: rest) = some (key, rest) := by
  refine stringScanned key rest (n + 1) ?_
  simp only [quote, List.length_cons, List.length_append, List.length_nil] at room
  omega

theorem printLeads {v : Json} (plain : v.plain floats = true) :
    ∃ c rest, print floats v = c :: rest ∧ Leads c := by
  match v with
  | .null => exact ⟨_, _, rfl, by decide, by decide, by decide⟩
  | .bool true => exact ⟨_, _, rfl, by decide, by decide, by decide⟩
  | .bool false => exact ⟨_, _, rfl, by decide, by decide, by decide⟩
  | .int i =>
    obtain ⟨c, rest, text, start⟩ := numberLeads (intValid i)
    refine ⟨c, rest, ?_, (numeralStart start).2.2.2.2.2.2⟩
    rw [← text]
    simp [print, intText, NumberText.text]
  | .float x =>
    have double : floats.isDouble x = true := (Bool.and_eq_true_iff.mp plain).1
    obtain ⟨t, valid, -, shape⟩ := floats.shape x double
    obtain ⟨c, rest, text, start⟩ := numberLeads valid
    exact ⟨c, rest, by rw [print, shape, text], (numeralStart start).2.2.2.2.2.2⟩
  | .str _ => exact ⟨_, _, rfl, by decide, by decide, by decide⟩
  | .arr [] => exact ⟨_, _, rfl, by decide, by decide, by decide⟩
  | .arr (_ :: _) => exact ⟨_, _, rfl, by decide, by decide, by decide⟩
  | .obj [] => exact ⟨_, _, rfl, by decide, by decide, by decide⟩
  | .obj (_ :: _) => exact ⟨_, _, rfl, by decide, by decide, by decide⟩

theorem plainParts {v : Json} (h : v.every (Json.plain floats) = true) :
    v.native floats = true ∧ v.shortInt = true :=
  Bool.and_eq_true_iff.mp (Json.everyHere h)

theorem skipPrinted {v : Json} (rest : List Char) (plain : v.plain floats = true) :
    skipSpace (print floats v ++ rest) = print floats v ++ rest ∧
      (print floats v ++ rest).head? ≠ some ']' := by
  obtain ⟨c, more, text, ink, bracket, -⟩ := printLeads plain
  rw [text, List.cons_append]
  refine ⟨skipNothing ink, fun same => bracket (Option.some.inj same)⟩

theorem printItemsStop (items : List Json) (rest : List Char) : Stops (printItems floats items ++ rest) := by
  intro c hc
  cases items with
  | nil =>
    cases hc
    exact .inr (.inl rfl)
  | cons item items =>
    cases hc
    exact .inl rfl

theorem printMembersStop (members : JsonObject) (rest : List Char) :
    Stops (printMembers floats members ++ rest) := by
  intro c hc
  cases members with
  | nil =>
    cases hc
    exact .inr (.inr rfl)
  | cons member members =>
    cases hc
    exact .inl rfl

-- the comma, or the opening bracket, stands before the first item
mutual
theorem onceScanned : (v : Json) → v.every (Json.plain floats) = true → ∀ (n : Nat) (rest : List Char),
    (print floats v).length < n → Stops rest → scanOnce floats n (print floats v ++ rest) = .ok (v, rest)
  | .null, _, n + 1, rest, _, _ => rfl
  | .bool true, _, n + 1, rest, _, _ => rfl
  | .bool false, _, n + 1, rest, _, _ => rfl
  | .int i, plain, n + 1, rest, _, behind =>
    intScanned (of_decide_eq_true (plainParts plain).2) behind
  | .float x, plain, n + 1, rest, _, behind => floatScanned (plainParts plain).1 behind
  | .str text, _, n + 1, rest, room, _ => by
    obtain ⟨m, rfl⟩ : ∃ m, n = m + 1 := ⟨n - 1, by simp [print, quote] at room; omega⟩
    have found := quoteScanned text.toList rest (n := m) (by rw [print] at room; omega)
    rw [print, quote, List.cons_append, List.append_assoc, scanOnce, if_pos rfl]
    simp only [List.singleton_append, found, String.ofList_toList]
  | .arr [], _, n + 1, rest, _, _ => rfl
  | .arr (item :: items), plain, n + 1, rest, room, _ => by
    rw [Json.every, Bool.and_eq_true] at plain
    have inner := plain.2
    have first := Json.everyHere (Json.everyItemIff.mp inner item List.mem_cons_self)
    have found := itemsScanned (item :: items) inner (by nofun) n rest (by
      simp only [print, printItems, List.length_cons] at room ⊢
      omega)
    obtain ⟨skip, open'⟩ := skipPrinted (printItems floats items ++ rest) first
    simp only [printItems, List.tail_cons, List.append_assoc] at found
    simp only [print, List.cons_append, List.append_assoc, scanOnce, skip, open', if_false, found]
    rfl
  | .obj [], _, n + 1, rest, _, _ => rfl
  | .obj ((key, value) :: members), plain, n + 1, rest, room, _ => by
    have distinct : (((key, value) :: members).map Prod.fst).Nodup :=
      of_decide_eq_true (plainParts plain).1
    rw [Json.every, Bool.and_eq_true] at plain
    have found := membersScanned ((key, value) :: members) plain.2 (by nofun) n rest (by
      simp only [print, printMembers, List.length_cons] at room ⊢
      omega)
    have kept : uniqueObject [] ((key, value) :: members) = .ok ((key, value) :: members) :=
      uniqueKept distinct
    have skip : ∀ text, skipSpace (quote key.toList ++ text) = quote key.toList ++ text := fun _ => rfl
    have open' : ∀ text, (quote key.toList ++ text).head? ≠ some '\x7d' := by
      intro text same
      cases same
    simp only [printMembers, List.tail_cons, List.append_assoc, List.cons_append] at found
    simp only [print, List.cons_append, List.append_assoc, scanOnce, skip, open', if_false, found,
      Fallible.okBind, kept]
    rfl
theorem itemsScanned : (items : List Json) → Json.everyItem (Json.plain floats) items = true →
    items ≠ [] → ∀ (n : Nat) (rest : List Char), (printItems floats items).length ≤ n →
      scanItems floats n ((printItems floats items).tail ++ rest) = .ok (items, rest)
  | [], _, some', _, _, _ => absurd rfl some'
  | _ :: _, _, _, 0, _, room => by simp [printItems] at room
  | [item], plain, _, n + 1, rest, room => by
    have each := Bool.and_eq_true_iff.mp plain
    have here := onceScanned item each.1 n (']' :: rest) (by
      simp [printItems] at room
      omega) fun c hc => .inr (.inl (Option.some.inj hc).symm)
    simp only [printItems, List.tail_cons, List.append_assoc, List.singleton_append, scanItems, here]
    rfl
  | item :: next :: items, plain, _, n + 1, rest, room => by
    have each := Bool.and_eq_true_iff.mp plain
    have later := Json.everyHere (Bool.and_eq_true_iff.mp each.2).1
    have wide : (print floats item).length + (printItems floats (next :: items)).length ≤ n := by
      rw [printItems, List.length_cons, List.length_append] at room
      omega
    have some' : 0 < (printItems floats (next :: items)).length := by simp [printItems]
    have here := onceScanned item each.1 n (printItems floats (next :: items) ++ rest) (by omega)
      (printItemsStop (next :: items) rest)
    have there := itemsScanned (next :: items) each.2 (by nofun) n rest (by omega)
    obtain ⟨skip, -⟩ := skipPrinted (printItems floats items ++ rest) later
    have comma : ∀ text, skipSpace (',' :: text) = ',' :: text := fun _ => rfl
    simp only [printItems, List.tail_cons, List.append_assoc, List.cons_append] at here there
    simp only [printItems, List.tail_cons, List.append_assoc, List.cons_append, scanItems, here,
      Fallible.okBind, comma, skip, there]
theorem membersScanned : (members : JsonObject) → Json.everyMember (Json.plain floats) members = true →
    members ≠ [] → ∀ (n : Nat) (rest : List Char), (printMembers floats members).length ≤ n →
      scanMembers floats n ((printMembers floats members).tail ++ rest) = .ok (members, rest)
  | [], _, some', _, _, _ => absurd rfl some'
  | _ :: _, _, _, 0, _, room => by simp [printMembers] at room
  | (key, value) :: members, plain, _, n + 1, rest, room => by
    have each := Bool.and_eq_true_iff.mp plain
    have first := Json.everyHere each.1
    have wide : (quote key.toList).length + (print floats value).length +
        (printMembers floats members).length + 1 ≤ n := by
      simp only [printMembers, List.length_cons, List.length_append] at room
      omega
    have some' : 0 < (printMembers floats members).length := by
      cases members with
      | nil => simp [printMembers]
      | cons member members => simp [printMembers]
    have here := onceScanned value each.1 n (printMembers floats members ++ rest) (by omega)
      (printMembersStop members rest)
    obtain ⟨m, rfl⟩ : ∃ m, n = m + 1 := ⟨n - 1, by omega⟩
    have named := quoteScanned key.toList
      (':' :: (print floats value ++ (printMembers floats members ++ rest))) (n := m) (by omega)
    obtain ⟨skip, -⟩ := skipPrinted (printMembers floats members ++ rest) first
    have colon : ∀ text, skipSpace (':' :: text) = ':' :: text := fun _ => rfl
    have text : (printMembers floats ((key, value) :: members)).tail ++ rest = '\x22' ::
        (key.toList.flatMap escapeChar ++ '\x22' ::
          ':' :: (print floats value ++ (printMembers floats members ++ rest))) := by
      simp [printMembers, quote]
    rw [text]
    simp only [scanMembers, named, colon, skip, here, Fallible.okBind, String.ofList_toList]
    match members with
    | [] => rfl
    | (other, next) :: members =>
      have there := membersScanned ((other, next) :: members) each.2 (by nofun) (m + 1) rest (by omega)
      have comma : ∀ text, skipSpace (',' :: text) = ',' :: text := fun _ => rfl
      have behind : ∀ text, skipSpace (quote other.toList ++ text) = quote other.toList ++ text :=
        fun _ => rfl
      simp only [printMembers, List.tail_cons, List.append_assoc, List.cons_append] at there
      simp only [printMembers, List.append_assoc, List.cons_append, comma, behind, there,
        Fallible.okBind]
end

theorem loadsPrint {v : Json} (plain : v.every (Json.plain floats) = true) :
    loads floats (String.ofList (print floats v)) = .ok v := by
  have first := (skipPrinted [] (Json.everyHere plain)).1
  have found := onceScanned v plain ((print floats v).length + 1) [] (by omega) (by nofun)
  simp only [List.append_nil] at first found
  simp only [loads, String.toList_ofList, first, found, Fallible.okBind]
  rfl

/-! ## Sorted keys -/

variable (floats) in
/-- `json.dumps(value, sort_keys=True, separators=(",", ":"), ensure_ascii=False)`. -/
def dumps (v : Json) : Except JsonFault String :=
  if v.every Json.shortInt then .ok (String.ofList (print floats v.sorted)) else .error .tooManyDigits

theorem nativeStable : Json.Stable (Json.native floats) := by
  intro v h
  cases v with
  | obj members =>
    have distinct : (members.map Prod.fst).Nodup := of_decide_eq_true h
    exact decide_eq_true ((Json.sortedKeys members).nodup_iff.mpr distinct)
  | _ => exact h

theorem shortIntStable : Json.Stable Json.shortInt := by
  intro v h
  cases v with
  | int i => exact h
  | _ => rfl

theorem dumpsPrinted {v : Json} {text : String} (dumped : dumps floats v = .ok text) :
    v.every Json.shortInt = true ∧ text = String.ofList (print floats v.sorted) := by
  rcases Fallible.branchOk dumped with ⟨short, last⟩ | ⟨-, last⟩
  · exact ⟨short, (Except.ok.inj last).symm⟩
  · cases last

theorem sortedPlain {v : Json} (native : v.every (Json.native floats) = true)
    (short : v.every Json.shortInt = true) : v.sorted.every (Json.plain floats) = true :=
  Json.everyBoth _ (Json.everySorted nativeStable v native) (Json.everySorted shortIntStable v short)

theorem loadsDumps {v : Json} {text : String} (native : v.every (Json.native floats) = true)
    (dumped : dumps floats v = .ok text) : loads floats text = .ok v.sorted := by
  obtain ⟨short, rfl⟩ := dumpsPrinted dumped
  exact loadsPrint (sortedPlain native short)

/-! ## One line -/

def OneLine (text : List Char) : Prop := ∀ c ∈ text, c ≠ '\n' ∧ c ≠ '\r'

theorem oneLineOf {text : List Char} (h : (text.all fun c => c != '\n' && c != '\r') = true) :
    OneLine text := by
  intro c inside
  have plain := List.all_eq_true.mp h c inside
  simpa using plain

theorem oneLineAppend {a b : List Char} : OneLine (a ++ b) ↔ OneLine a ∧ OneLine b :=
  List.forall_mem_append

theorem oneLineCons {c : Char} {text : List Char} :
    OneLine (c :: text) ↔ (c ≠ '\n' ∧ c ≠ '\r') ∧ OneLine text :=
  List.forall_mem_cons

theorem numberLine {t : NumberText} (valid : t.Valid) : OneLine t.text := fun _ inside =>
  ⟨fun same => numberApart valid rfl (same ▸ inside), fun same => numberApart valid rfl (same ▸ inside)⟩

theorem escapeLine (c : Char) : OneLine (escapeChar c) := by
  unfold escapeChar
  split
  · exact oneLineOf rfl
  split
  · exact oneLineOf rfl
  split
  · exact oneLineOf rfl
  split
  · exact oneLineOf rfl
  split
  · exact oneLineOf rfl
  split
  · exact oneLineOf rfl
  split
  · exact oneLineOf rfl
  split
  · rename_i control
    have digit : ∀ d, d < 16 → Nat.digitChar d ≠ '\n' ∧ Nat.digitChar d ≠ '\r' := by decide
    simp only [oneLineCons]
    exact ⟨by decide, by decide, by decide, by decide, digit _ (by omega), digit _ (by omega), nofun⟩
  · rename_i feed carriage _ _ _ _
    exact oneLineCons.mpr ⟨⟨feed, carriage⟩, nofun⟩

theorem quoteLine (text : List Char) : OneLine (quote text) := by
  refine oneLineCons.mpr ⟨by decide, oneLineAppend.mpr ⟨?_, oneLineCons.mpr ⟨by decide, nofun⟩⟩⟩
  intro c inside
  obtain ⟨d, -, escaped⟩ := List.mem_flatMap.mp inside
  exact escapeLine d c escaped

mutual
theorem printLine : (v : Json) → v.every (Json.plain floats) = true → OneLine (print floats v)
  | .null, _ => (oneLineOf rfl : OneLine "null".toList)
  | .bool true, _ => (oneLineOf rfl : OneLine "true".toList)
  | .bool false, _ => (oneLineOf rfl : OneLine "false".toList)
  | .int i, _ => by
    have line := numberLine (intValid i)
    simpa [NumberText.text, print, intText] using line
  | .float x, plain => by
    obtain ⟨t, valid, -, text⟩ := floats.shape x (plainParts plain).1
    rw [print, text]
    exact numberLine valid
  | .str text, _ => quoteLine text.toList
  | .arr [], _ => (oneLineOf rfl : OneLine ['[', ']'])
  | .arr (item :: items), plain => by
    rw [Json.every, Bool.and_eq_true] at plain
    have each := Bool.and_eq_true_iff.mp plain.2
    exact oneLineCons.mpr ⟨by decide,
      oneLineAppend.mpr ⟨printLine item each.1, printItemsLine items each.2⟩⟩
  | .obj [], _ => (oneLineOf rfl : OneLine ['\x7b', '\x7d'])
  | .obj ((key, value) :: members), plain => by
    rw [Json.every, Bool.and_eq_true] at plain
    have each := Bool.and_eq_true_iff.mp plain.2
    refine oneLineCons.mpr ⟨by decide, oneLineAppend.mpr ⟨quoteLine _, oneLineCons.mpr ⟨by decide, ?_⟩⟩⟩
    exact oneLineAppend.mpr ⟨printLine value each.1, printMembersLine members each.2⟩
theorem printItemsLine : (items : List Json) → Json.everyItem (Json.plain floats) items = true →
    OneLine (printItems floats items)
  | [], _ => (oneLineOf rfl : OneLine [']'])
  | item :: items, plain => by
    have each := Bool.and_eq_true_iff.mp plain
    exact oneLineCons.mpr ⟨by decide,
      oneLineAppend.mpr ⟨printLine item each.1, printItemsLine items each.2⟩⟩
theorem printMembersLine : (members : JsonObject) →
    Json.everyMember (Json.plain floats) members = true → OneLine (printMembers floats members)
  | [], _ => (oneLineOf rfl : OneLine ['\x7d'])
  | (key, value) :: members, plain => by
    have each := Bool.and_eq_true_iff.mp plain
    refine oneLineCons.mpr ⟨by decide, oneLineAppend.mpr ⟨quoteLine _, oneLineCons.mpr ⟨by decide, ?_⟩⟩⟩
    exact oneLineAppend.mpr ⟨printLine value each.1, printMembersLine members each.2⟩
end

end Back
end Enfold
