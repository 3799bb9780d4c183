import Enfold.ErasureBlocked
import Enfold.TextParts

/-! Citations in tags: what the two readers take from a text with a list of fact ids. -/
namespace Enfold

open Fallible

variable {rt : Runtime}

def citationMark : List Char := "source_facts:".toList

def runChar (c : Char) : Bool := Text.isDigitAscii c || c = ','

/-- `[0-9]+`. -/
structure DigitWord (word : List Char) : Prop where
  some : word ≠ []
  digits : ∀ c ∈ word, Text.isDigitAscii c = true

def joinedNumbers (words : List (List Char)) : List Char := [','].intercalate words

/-- What may stand behind a list without becoming a part of it. -/
inductive ListEnd : List Char → Prop
  | done : ListEnd []
  | comma {rest} (other : ∀ c ∈ rest.head?, Text.isDigitAscii c = false) : ListEnd (',' :: rest)
  | blank {c rest} (space : Text.isSpace c = true) : ListEnd (c :: rest)

inductive CitationReader where
  | reflection | erasure

/-- The ids a reader takes from tags; tags it cannot read give none. -/
def CitationReader.cites (rt : Runtime) : CitationReader → String → Nat → Prop
  | .reflection, tags, factId => factId ∈ citedIds tags
  | .erasure, tags, factId => ∃ ids, citedFacts rt tags = .ok ids ∧ factId ∈ ids

def CitationReader.tail (rt : Runtime) : CitationReader → List Char → List (List Char)
  | .reflection, post => (Text.splitOn ',' (post.takeWhile runChar)).filter (· ≠ [])
  | .erasure, post => (Text.splitOn ',' (post.takeWhile fun c => !Text.isSpace c)).filter fun word =>
      word ≠ [] && word.all rt.isDigit

/-- ASCII digits are digits of their value, and a colon is none. -/
structure Runtime.ReadsDigits (rt : Runtime) : Prop where
  digit : ∀ c, Text.isDigitAscii c = true → rt.isDigit c = true
  colon : rt.isDigit ':' = false
  value : ∀ c, Text.isDigitAscii c = true → rt.decimal c = some (c.toNat - '0'.toNat)

/-! ## Lists -/

section Lists
variable {words : List (List Char)} {post : List Char} {word : List Char}

theorem digitFacts {c : Char} (digit : Text.isDigitAscii c = true) :
    c ≠ ',' ∧ Text.isSpace c = false ∧ runChar c = true := by
  simp only [Text.isDigitAscii, Bool.and_eq_true, decide_eq_true_eq] at digit
  have low : 48 ≤ c.toNat := digit.1
  have high : c.toNat ≤ 57 := digit.2
  refine ⟨fun same => ?_, ?_, ?_⟩
  · rw [same] at low
    exact absurd low (by decide)
  · simp only [Text.isSpace, Bool.or_eq_false_iff, Bool.and_eq_false_iff, decide_eq_false_iff_not, beq_eq_false_iff_ne]
    omega
  · simp only [runChar, Text.isDigitAscii, Bool.or_eq_true, Bool.and_eq_true, decide_eq_true_eq]
    exact .inl digit

theorem spaceFacts {c : Char} (space : Text.isSpace c = true) : c ≠ ',' ∧ runChar c = false := by
  have comma : c ≠ ',' := fun same => by
    rw [same] at space
    exact absurd space (by decide)
  refine ⟨comma, ?_⟩
  cases digit : Text.isDigitAscii c with
  | true =>
    rw [(digitFacts digit).2.1] at space
    cases space
  | false => simp [runChar, digit, comma]

theorem DigitWord.whole (number : DigitWord word) : ',' ∉ word :=
  fun inside => (digitFacts (number.digits _ inside)).1 rfl

theorem joinedChar (numbers : ∀ word ∈ words, DigitWord word) {c : Char} (h : c ∈ joinedNumbers words) :
    runChar c = true ∧ Text.isSpace c = false := by
  rcases Text.joinedChars h with rfl | ⟨word, hw, inside⟩
  · exact ⟨by decide, by decide⟩
  · have facts := digitFacts ((numbers word hw).digits c inside)
    exact ⟨facts.2.2, facts.2.1⟩

theorem joinedHead (some : words ≠ []) (numbers : ∀ word ∈ words, DigitWord word) :
    ∃ c rest, joinedNumbers words = c :: rest ∧ Text.isDigitAscii c = true := by
  cases words with
  | nil => exact absurd rfl some
  | cons word more =>
    have number := numbers word List.mem_cons_self
    cases word with
    | nil => exact absurd rfl number.some
    | cons c rest =>
      refine ⟨c, [','].intercalate (rest :: more), ?_, number.digits c List.mem_cons_self⟩
      exact List.intercalate_cons_cons_left

theorem splitBehind (some : words ≠ []) (numbers : ∀ word ∈ words, DigitWord word) {back : List Char}
    (behind : back = [] ∨ ∃ rest, back = ',' :: rest) :
    Text.splitOn ',' (joinedNumbers words ++ back) = words ++ (Text.splitOn ',' back).tail := by
  have parts := Text.splitOnJoined (fun word hw => (numbers word hw).whole) some
  rcases behind with rfl | ⟨rest, rfl⟩
  · rw [List.append_nil, joinedNumbers, parts]
    exact (List.append_nil words).symm
  · have comma := Text.splitOnAppend ',' [] rest
    rw [List.nil_append] at comma
    rw [Text.splitOnAppend, joinedNumbers, parts, comma]
    rfl

theorem headBlank {back : List Char} (behind : back = [] ∨ ∃ rest, back = ',' :: rest) :
    Text.splitOn ',' back = [] :: (Text.splitOn ',' back).tail := by
  rcases behind with rfl | ⟨rest, rfl⟩
  · rfl
  · have comma := Text.splitOnAppend ',' [] rest
    rw [List.nil_append] at comma
    rw [comma]
    rfl

theorem ListEnd.taken (ends : ListEnd post) (more : Char → Bool)
    (stops : ∀ c, Text.isSpace c = true → more c = false) (comma : more ',' = true) :
    post.takeWhile more = [] ∨ ∃ rest, post.takeWhile more = ',' :: rest := by
  cases ends with
  | done => exact .inl rfl
  | comma other => exact .inr ⟨_, List.takeWhile_cons_of_pos comma⟩
  | blank space => exact .inl (List.takeWhile_cons_of_neg (by simp [stops _ space]))

theorem readFilter (some : words ≠ []) (numbers : ∀ word ∈ words, DigitWord word) {back : List Char}
    (behind : back = [] ∨ ∃ rest, back = ',' :: rest) (wanted : List Char → Bool) (empty : wanted [] = false)
    (each : ∀ word, DigitWord word → wanted word = true) :
    (Text.splitOn ',' (joinedNumbers words ++ back)).filter wanted =
      words ++ (Text.splitOn ',' back).filter wanted := by
  rw [splitBehind some numbers behind, List.filter_append,
    List.filter_eq_self.mpr fun word hw => each word (numbers word hw)]
  conv_rhs => rw [headBlank behind, List.filter_cons_of_neg (by simp [empty])]

end Lists

/-! ## Readers -/

section Readers
variable {text post : List Char} {words : List (List Char)} {body : List Char}

theorem sourceRunFirst (here : Text.afterFirst citationMark text = some body) (some : body.takeWhile runChar ≠ []) :
    sourceRun text = body.takeWhile runChar := by
  induction text with
  | nil => cases here
  | cons c rest ih =>
    unfold Text.afterFirst at here
    split at here
    · rename_i behind found
      cases here
      have marked : Text.after "source_facts:".toList (c :: rest) = Option.some body := found
      rw [sourceRun, marked]
      cases run : body.takeWhile runChar with
      | nil => exact absurd run some
      | cons d run' =>
        unfold runChar at run
        simp only [run]
    · rename_i miss
      have missed : Text.after "source_facts:".toList (c :: rest) = none := miss
      rw [sourceRun, missed]
      exact ih here

end Readers

/-! ## Numerals -/

def numeral (n : Nat) : List Char := (toString n).toList

section Numerals

theorem numeralDigits (n : Nat) : DigitWord (numeral n) where
  some := by
    simp only [numeral, Nat.toString_eq_repr, Nat.toList_repr]
    exact Nat.toDigits_ne_nil
  digits c hc := by
    simp only [numeral, Nat.toString_eq_repr, Nat.toList_repr] at hc
    exact Nat.isDigit_of_mem_toDigits (by omega) (by omega) hc

theorem readNumeral (n : Nat) : readNat (numeral n) = n := by
  simp only [numeral, Nat.toString_eq_repr, Nat.toList_repr]
  have read := Nat.ofDigitChars_toDigits (b := 10) (n := n) (by omega) (by omega)
  rw [Nat.ofDigitChars] at read
  refine Eq.trans ?_ read
  rw [readNat]
  congr 1
  funext total c
  rw [Nat.mul_comm]

end Numerals

end Enfold
